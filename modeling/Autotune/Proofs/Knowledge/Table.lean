import Autotune.Proofs.Knowledge.Place

/-!
# Tables and their index

A table is `Table.Indexed` when its index names, for every configuration, exactly the position at
which its point stands.

* `Table.Indexed.upsertAll`: putting points keeps the index right;
* `Table.Indexed.points_upsertAll`: the points of a table after points were put.
-/

namespace Autotune

variable {kn mn : Nat} {p q : OperatingPoint kn mn} {new points : List (OperatingPoint kn mn)}
  {id : String}

/-- The last of some points that is of a configuration. -/
def latest? (new : List (OperatingPoint kn mn)) (id : String) : Option (OperatingPoint kn mn) :=
  new.reverse.find? fun p => p.id = id

/-- The points of the named configurations, each the last one that was given. -/
def latestOf (new : List (OperatingPoint kn mn)) (ids : List String) :
    List (OperatingPoint kn mn) :=
  ids.filterMap (latest? new)

lemma latest?_cons :
    latest? (p :: new) id = (latest? new id).or (if p.id = id then some p else none) := by
  by_cases h : p.id = id <;> simp [latest?, h]

lemma latest?_cons_of_ne (h : p.id ≠ id) : latest? (p :: new) id = latest? new id := by
  rw [latest?_cons, if_neg h, Option.or_none]

lemma latest?_cons_self : latest? (p :: new) p.id = some ((latest? new p.id).getD p) := by
  rw [latest?_cons, if_pos rfl]
  cases latest? new p.id <;> rfl

lemma latestOf_cons_of_notMem {ids : List String} (h : p.id ∉ ids) :
    latestOf (p :: new) ids = latestOf new ids :=
  List.filterMap_congr fun _ hid => latest?_cons_of_ne fun same => h (same ▸ hid)

lemma exists_latest? (h : id ∈ new.map OperatingPoint.id) :
    ∃ p, latest? new id = some p ∧ p.id = id := by
  obtain ⟨q, hq, same⟩ := List.mem_map.mp h
  have found : (latest? new id).isSome := by
    rw [latest?, List.find?_isSome]
    exact ⟨q, List.mem_reverse.mpr hq, by simpa using same⟩
  obtain ⟨p, hp⟩ := Option.isSome_iff_exists.mp found
  exact ⟨p, hp, by simpa using List.find?_some hp⟩

lemma map_id_latestOf {ids : List String} (h : ∀ id ∈ ids, id ∈ new.map OperatingPoint.id) :
    (latestOf new ids).map OperatingPoint.id = ids := by
  induction ids with
  | nil => rfl
  | cons id ids ih =>
    obtain ⟨p, found, same⟩ := exists_latest? (h id List.mem_cons_self)
    rw [latestOf, List.filterMap_cons_some found, List.map_cons, same, ← latestOf,
      ih fun id hid => h id (List.mem_cons_of_mem _ hid)]

namespace Table

variable {t : Table kn mn}

/-- The names of the configurations, in order. -/
def ids (t : Table kn mn) : List String := t.points.map OperatingPoint.id

/-- The index says where the point of each configuration stands, and of no other configuration. -/
def Indexed (t : Table kn mn) : Prop := ∀ id i, t.position? id = some i ↔ t.ids[i]? = some id

lemma indexed_empty : (empty : Table kn mn).Indexed := Roster.locates_nil

namespace Indexed

/-- **No two points of an indexed table are of one configuration.** -/
theorem nodup_ids (h : t.Indexed) : t.ids.Nodup := Roster.Locates.nodup h

lemma position?_eq_none (h : t.Indexed) : t.position? id = none ↔ id ∉ t.ids := by
  rw [position?, Option.map_eq_none_iff, Roster.Locates.get?_eq_none h]

lemma get?_eq_some (h : t.Indexed) : t.get? id = some p ↔ p ∈ t.points ∧ p.id = id := by
  simp only [get?, Option.bind_eq_some_iff, h id, ids, List.getElem?_map, Option.map_eq_some_iff]
  constructor
  · rintro ⟨i, ⟨q, hq, same⟩, hp⟩
    obtain rfl : q = p := Option.some_inj.mp (hq.symm.trans hp)
    exact ⟨List.mem_of_getElem? hp, same⟩
  · rintro ⟨hp, same⟩
    obtain ⟨i, hi⟩ := List.mem_iff_getElem?.mp hp
    exact ⟨i, ⟨p, hi, same⟩, hi⟩

end Indexed

/-! ### Putting points -/

lemma upsert_of_known {i : Nat} (known : t.position? p.id = some i) :
    t.upsert p = { t with points := t.points.set i p } := by
  obtain ⟨place, found, rfl⟩ := Option.map_eq_some_iff.mp known
  rw [upsert, found]

lemma upsert_of_new (new : t.position? p.id = none) :
    t.upsert p = ⟨t.points ++ [p], t.index.insert ⟨p.id, t.points.length⟩⟩ := by
  rw [upsert, Option.map_eq_none_iff.mp new]

lemma Indexed.map_set (h : t.Indexed) {i : Nat} (known : t.position? p.id = some i) :
    (t.points.set i p).map OperatingPoint.id = t.ids := by
  obtain ⟨inside, same⟩ := List.getElem?_eq_some_iff.mp ((h _ _).mp known)
  rw [List.map_set, ← same]
  exact List.set_getElem_self inside

lemma Indexed.upsert_known (h : t.Indexed) {i : Nat} (known : t.position? p.id = some i) :
    Indexed { t with points := t.points.set i p } := by
  intro id j
  rw [ids, h.map_set known]
  exact h id j

lemma Indexed.upsert_new (h : t.Indexed) (new : t.position? p.id = none) :
    Indexed ⟨t.points ++ [p], t.index.insert ⟨p.id, t.points.length⟩⟩ := by
  have length : t.ids.length = t.points.length := List.length_map _
  have next := Roster.Locates.concat h (h.position?_eq_none.mp new)
  rwa [length, ids, ← List.map_singleton, ← List.map_append] at next

lemma Indexed.upsert (h : t.Indexed) : (t.upsert p).Indexed := by
  cases known : t.position? p.id with
  | none =>
    rw [upsert_of_new known]
    exact h.upsert_new known
  | some i =>
    rw [upsert_of_known known]
    exact h.upsert_known known

/-- **Putting points keeps the index right.** -/
theorem Indexed.upsertAll (h : t.Indexed) : (t.upsertAll new).Indexed := by
  induction new generalizing t with
  | nil => exact h
  | cons p new ih => exact ih h.upsert

/-! ### A new index -/

lemma indexed_ofPoints (h : (points.map OperatingPoint.id).Nodup) : (ofPoints points).Indexed :=
  Roster.locates_zipIdx OperatingPoint.id h

lemma Indexed.without (h : t.Indexed) (ids : List String) : (t.without ids).Indexed :=
  indexed_ofPoints (h.nodup_ids.sublist (List.filter_sublist.map _))

/-! ### The points after points were put -/

/-- The configurations of which there is a point among the new ones only. -/
def newIds (points new : List (OperatingPoint kn mn)) : List String :=
  ((new.map OperatingPoint.id).filter fun id => id ∉ points.map OperatingPoint.id).eraseDups

/-- Points and new points together: a known configuration keeps its place, and the others follow in
the order of their first points.  Of several new points of one configuration the last counts. -/
def merged (points new : List (OperatingPoint kn mn)) : List (OperatingPoint kn mn) :=
  points.map (fun p => (latest? new p.id).getD p) ++ latestOf new (newIds points new)

lemma mem_of_mem_newIds (h : id ∈ newIds points new) : id ∈ new.map OperatingPoint.id := by
  rw [newIds, List.mem_eraseDups] at h
  exact List.mem_of_mem_filter h

lemma map_id_merged :
    (merged points new).map OperatingPoint.id =
      points.map OperatingPoint.id ++ newIds points new := by
  -- a point gives way to one of its own configuration only
  have known : (points.map fun p => (latest? new p.id).getD p).map OperatingPoint.id =
      points.map OperatingPoint.id := by
    rw [List.map_map]
    refine List.map_congr_left fun p _ => ?_
    dsimp only [Function.comp]
    cases found : latest? new p.id with
    | none => rfl
    | some q => simpa using List.find?_some found
  rw [merged, List.map_append, known, map_id_latestOf fun _ => mem_of_mem_newIds]

lemma newIds_cons_of_known (h : p.id ∈ points.map OperatingPoint.id) :
    newIds points (p :: new) = newIds points new := by
  rw [newIds, List.map_cons, List.filter_cons_of_neg (by simpa using h), newIds]

lemma newIds_cons_of_new (h : p.id ∉ points.map OperatingPoint.id) :
    newIds points (p :: new) = p.id :: newIds (points ++ [p]) new := by
  rw [newIds, List.map_cons, List.filter_cons_of_pos (by simpa using h), List.eraseDups_cons,
    List.filter_filter, newIds, List.map_append, List.map_singleton]
  congr 2
  refine List.filter_congr fun id _ => ?_
  simp [and_comm, beq_eq_decide]

lemma notMem_newIds_concat : p.id ∉ newIds (points ++ [p]) new := by
  simp [newIds, List.mem_eraseDups]

lemma notMem_newIds_of_known (h : p.id ∈ points.map OperatingPoint.id) :
    p.id ∉ newIds points new := by
  simpa [newIds, List.mem_eraseDups] using fun _ _ _ => h

/-- In an indexed table only one point gives way. -/
lemma Indexed.set_eq_map (h : t.Indexed) {i : Nat} (known : t.position? p.id = some i) :
    t.points.set i p = t.points.map fun q => if q.id = p.id then p else q := by
  refine List.ext_getElem? fun j => ?_
  -- by place: the configuration stands at the one where it was found, and at no other
  by_cases here : i = j
  · subst here
    have placed : (t.points[i]?).map OperatingPoint.id = some p.id := by
      rw [← List.getElem?_map]
      exact (h _ _).mp known
    obtain ⟨q, hq, same⟩ := Option.map_eq_some_iff.mp placed
    have inside : i < t.points.length := (List.getElem?_eq_some_iff.mp hq).1
    rw [List.getElem?_set_self inside, List.getElem?_map, hq, Option.map_some, if_pos same]
  · rw [List.getElem?_set_ne here, List.getElem?_map]
    cases hq : t.points[j]? with
    | none => rfl
    | some q =>
      have place : t.position? q.id = some j := (h _ _).mpr (by simp [ids, hq])
      have other : q.id ≠ p.id := fun same =>
        here (Option.some_inj.mp (known.symm.trans (same ▸ place)))
      rw [Option.map_some, if_neg other]

lemma merged_cons_of_known (h : t.Indexed) {i : Nat} (known : t.position? p.id = some i) :
    merged t.points (p :: new) = merged (t.points.set i p) new := by
  have member : p.id ∈ t.points.map OperatingPoint.id :=
    List.mem_of_getElem? ((h _ _).mp known)
  have names : newIds (t.points.set i p) new = newIds t.points new := by
    rw [newIds, h.map_set known, newIds, ids]
  have places : (t.points.set i p).map (fun q => (latest? new q.id).getD q) =
      t.points.map fun q => (latest? (p :: new) q.id).getD q := by
    rw [h.set_eq_map known, List.map_map]
    refine List.map_congr_left fun q _ => ?_
    dsimp only [Function.comp]
    split
    case isTrue same => rw [same, latest?_cons_self, Option.getD_some]
    case isFalse other => rw [latest?_cons_of_ne (Ne.symm other)]
  rw [merged, newIds_cons_of_known member, latestOf_cons_of_notMem (notMem_newIds_of_known member),
    merged, places, names]

lemma merged_cons_of_new (h : p.id ∉ points.map OperatingPoint.id) :
    merged points (p :: new) = merged (points ++ [p]) new := by
  have others : points.map (fun q => (latest? (p :: new) q.id).getD q) =
      points.map fun q => (latest? new q.id).getD q := by
    refine List.map_congr_left fun q hq => ?_
    rw [latest?_cons_of_ne fun same => h (List.mem_map.mpr ⟨q, hq, same.symm⟩)]
  have last : latestOf (p :: new) (p.id :: newIds (points ++ [p]) new) =
      (latest? new p.id).getD p :: latestOf new (newIds (points ++ [p]) new) := by
    rw [latestOf, List.filterMap_cons_some latest?_cons_self, ← latestOf,
      latestOf_cons_of_notMem notMem_newIds_concat]
  rw [merged, others, newIds_cons_of_new h, last, merged, List.map_append, List.map_singleton,
    List.append_assoc, List.singleton_append]

/-- **The points of a table after points were put.** -/
theorem Indexed.points_upsertAll (h : t.Indexed) :
    (t.upsertAll new).points = merged t.points new := by
  -- for all tables, since every point that is put makes another one
  induction new generalizing t with
  | nil =>
    show t.points = _
    simp [merged, newIds, latestOf, latest?]
  | cons p new ih =>
    have step : t.upsertAll (p :: new) = (t.upsert p).upsertAll new := rfl
    rw [step, ih h.upsert]
    cases known : t.position? p.id with
    | none => rw [upsert_of_new known, merged_cons_of_new (h.position?_eq_none.mp known)]
    | some i => rw [upsert_of_known known, merged_cons_of_known h known]

end Table

end Autotune
