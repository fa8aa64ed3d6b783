import Autotune.Knowledge.Basic
import Autotune.Proofs.Roster
import Mathlib.Data.List.Induction

/-!
# An index beside a list

Points and clusters stand in a list, and an index says where each is found by its name.  The index
`Roster.Locates` the names of the list when it names, for each of them, exactly the position at
which it stands, and none for any other.  Then no name stands twice, since its positions would be
the same.

* `Roster.Locates.concat`: a new name at the end goes into the index with the next position;
* `Roster.locates_zipIdx`: a new index of different names locates them.
-/

namespace Autotune

namespace Roster

variable {index : Roster Place} {names : List String} {name : String}

/-- The index says where each of the names stands, and of no other name. -/
def Locates (index : Roster Place) (names : List String) : Prop :=
  ∀ name i, (index.get? name).map Place.position = some i ↔ names[i]? = some name

lemma locates_nil : (empty : Roster Place).Locates [] := by
  simp [Locates, get?, empty]

namespace Locates

/-- **No name stands twice beside an index.** -/
theorem nodup (h : index.Locates names) : names.Nodup := by
  refine List.pairwise_iff_getElem.mpr fun i j hi hj less same => ?_
  have at_i := (h names[i] i).mpr (List.getElem?_eq_getElem hi)
  have at_j := (h names[j] j).mpr (List.getElem?_eq_getElem hj)
  rw [same, at_j] at at_i
  exact absurd (Option.some_inj.mp at_i) (Nat.ne_of_gt less)

lemma get?_eq_none (h : index.Locates names) : index.get? name = none ↔ name ∉ names := by
  rw [← Option.map_eq_none_iff (f := Place.position)]
  simp only [Option.eq_none_iff_forall_ne_some, ne_eq, h name, List.mem_iff_getElem?, not_exists]

lemma concat (h : index.Locates names) (new : name ∉ names) :
    (index.insert ⟨name, names.length⟩).Locates (names ++ [name]) := by
  have absent (j : Nat) : names[j]? ≠ some name := fun known => new (List.mem_of_getElem? known)
  intro other j
  have found : (index.insert ⟨name, names.length⟩).get? other =
      if name = other then some ⟨name, names.length⟩ else index.get? other := get?_insert
  rw [found, List.getElem?_append, List.getElem?_singleton]
  split
  case isTrue own =>
    subst own
    rw [Option.map_some, Option.some_inj]
    grind
  case isFalse different =>
    rw [h other j]
    grind

end Locates

/-- **A new index of different names locates them.** -/
theorem locates_zipIdx {α : Type} (name : α → String) {entries : List α}
    (different : (entries.map name).Nodup) :
    (entries.zipIdx.foldl (fun index (a, i) => index.insert ⟨name a, i⟩) empty).Locates
      (entries.map name) := by
  -- from the end, since the index counts from the front
  induction entries using List.reverseRecOn with
  | nil => exact locates_nil
  | append_singleton entries a ih =>
    rw [List.map_append, List.map_singleton] at different ⊢
    rw [← List.concat_eq_append, List.nodup_concat] at different
    have length : (entries.map name).length = entries.length := List.length_map _
    have next := (ih different.2).concat different.1
    rw [length] at next
    rw [List.zipIdx_append, List.foldl_append]
    simpa using next

end Roster

end Autotune
