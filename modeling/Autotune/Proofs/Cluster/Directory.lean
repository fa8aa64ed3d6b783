import Autotune.Proofs.Block.Sound
import Autotune.Proofs.Cluster.Sound
import Autotune.Proofs.Knowledge.Place
import Autotune.Proofs.Point.Key

/-!
# Which clusters there are, where they stand, and which is selected

Clusters stand in a list.  An index finds them by the keys of their features, and the selected one
is a place in the list; both have to be kept in step with it.  Clusters are `Clusters.Filed` when
they are, and every command keeps them so (`Clusters.Filed.run`): the commands that add, remove and
select clusters have their own arguments, and all others leave features, index and selection alone
(`Clusters.SameFiling`).

Keys are texts, but the texts of features are different when the features are
(`Clusters.key_eq_iff_sameFeatures`), so all this can be said about the features themselves.

* `Clusters.Filed.position?_eq_some`: the index finds a cluster by its features, whatever the signs
  of their zeros are, and nothing else;
* `Clusters.Filed.dropped`, `Clusters.Filed.appended`: what an accepted removal and an accepted
  addition do to the list and to the selection.
-/

namespace Autotune

open Operation

lemma isNaN_of_isFinite {x : Float} (h : x.isFinite = true) : x.isNaN = false := by
  have finite : x.toModel.unpack.isFinite = true := h
  show x.toModel.unpack.isNaN = false
  generalize x.toModel.unpack = u at *
  cases u with
  | notANumber => cases finite
  | _ => rfl

lemma checkFeatures_eq_ok {features : List Float} :
    checkFeatures features = .ok ⟨⟩ ↔ ∀ x ∈ features, x.isFinite = true := by
  have pass : checkFeatures features = .ok ⟨⟩ ↔
      features.zipIdx.find? (fun entry => !entry.1.isFinite) = none := by
    unfold checkFeatures
    split <;> simp [*]
  have members : features.zipIdx.map Prod.fst = features := List.zipIdx_map_fst 0 features
  rw [pass, List.find?_eq_none]
  nth_rewrite 2 [← members]
  rw [List.forall_mem_map]
  simp

namespace Clusters

variable {kn mn fn : Nat} {cs cs' : Clusters kn mn fn} {c d : Cluster kn mn fn} {i j : Nat}
  {features : Vector Float fn}

/-! ### Features and keys -/

/-- Two rows of features hold equal numbers.  The two zeros are equal. -/
def SameFeatures (f g : Vector Float fn) : Prop := ∀ i (h : i < fn), (f[i] == g[i]) = true

/-- Features that are all finite. -/
def Finite (f : Vector Float fn) : Prop := ∀ x ∈ f.toList, x.isFinite = true

instance (f : Vector Float fn) : Decidable (Finite f) :=
  inferInstanceAs (Decidable (∀ x ∈ f.toList, x.isFinite = true))

/-- **Keys tell features apart.** -/
theorem key_eq_iff_sameFeatures {f g : Vector Float fn} (finite : Finite g) :
    key f.toList = key g.toList ↔ SameFeatures f g := by
  have numbers : ∀ y ∈ g.toList, y.isNaN = false := fun y hy => isNaN_of_isFinite (finite y hy)
  rw [key_eq_iff_forall₂ (by simp) numbers, List.forall₂_iff_get]
  simp [SameFeatures]

/-! ### Clusters that are filed -/

/-- The index and the selection are in step with the list of clusters. -/
structure Filed (cs : Clusters kn mn fn) : Prop where
  /-- Every cluster has finite features. -/
  finite : ∀ c ∈ cs.entries, Finite c.features
  /-- The index says where the key of each cluster stands. -/
  locates : cs.index.Locates (cs.entries.map Cluster.key)
  /-- The selected place is in the list. -/
  inside : ∀ i, cs.selected = some i → i < cs.entries.length
  /-- When there is any cluster, one is selected. -/
  some_selected : cs.selected = none → cs.entries = []

namespace Filed

/-- **The index finds a cluster by its features.** -/
theorem position?_eq_some (h : cs.Filed) : cs.position? (key features.toList) = some i ↔
    ∃ c, cs.entries[i]? = some c ∧ SameFeatures features c.features := by
  rw [position?, h.locates, List.getElem?_map, Option.map_eq_some_iff]
  refine exists_congr fun c => and_congr_right fun found => ?_
  rw [← key_eq_iff_sameFeatures (h.finite c (List.mem_of_getElem? found)), eq_comm]
  rfl

/-- **No two clusters have the same features.** -/
theorem place_unique (h : cs.Filed) (hc : cs.entries[i]? = some c) (hd : cs.entries[j]? = some d)
    (same : SameFeatures c.features d.features) : i = j := by
  have finite := h.finite c (List.mem_of_getElem? hc)
  have own := h.position?_eq_some.mpr ⟨c, hc, (key_eq_iff_sameFeatures finite).mp rfl⟩
  have other := h.position?_eq_some.mpr ⟨d, hd, same⟩
  exact Option.some_inj.mp (own.symm.trans other)

lemma selected_isSome (h : cs.Filed) : cs.selected.isSome = true ↔ cs.entries ≠ [] := by
  cases selected : cs.selected with
  | none => simp [h.some_selected selected]
  | some i =>
    have inside := h.inside i selected
    simpa using List.ne_nil_of_length_pos (by omega)

/-- **A cluster is selected when there is any.** -/
theorem current?_isSome (h : cs.Filed) : cs.current?.isSome = true ↔ cs.entries ≠ [] := by
  cases selected : cs.selected with
  | none => simp [current?, selected, h.some_selected selected]
  | some i =>
    have inside := h.inside i selected
    have some : cs.entries ≠ [] := List.ne_nil_of_length_pos (by omega)
    simp [current?, selected, inside, some]

end Filed

/-! ### Adding and removing -/

/-- A cluster with the given features stands at the end of the list.  It is selected when it is the
first one; otherwise the same cluster is selected as before. -/
def Appended (cs : Clusters kn mn fn) (features : Vector Float fn)
    (points : List (OperatingPoint kn mn)) (cs' : Clusters kn mn fn) : Prop :=
  ∃ built, (cs.sibling points).build = .ok built ∧
    cs'.entries = cs.entries ++ [⟨features, built.value⟩] ∧
    cs'.current? = if cs.entries = [] then some ⟨features, built.value⟩ else cs.current?

/-- The cluster with the given features is gone from the list, and the same cluster is selected as
before. -/
def Dropped (cs : Clusters kn mn fn) (features : Vector Float fn) (cs' : Clusters kn mn fn) :
    Prop :=
  ∃ i c, cs.entries[i]? = some c ∧ SameFeatures features c.features ∧
    cs'.entries = cs.entries.eraseIdx i ∧ cs'.current? = cs.current?

namespace Filed

section

variable {points : List (OperatingPoint kn mn)} {u : Unit}

lemma add (h : cs.Filed) (ok : (add features points).Yields cs u cs') : cs'.Filed := by
  obtain ⟨finite, new, built, -, rfl⟩ := add_yields ok
  have free : key features.toList ∉ cs.entries.map Cluster.key :=
    h.locates.get?_eq_none.mp (Option.map_eq_none_iff.mp new)
  have located := h.locates.concat free
  rw [List.length_map] at located
  refine ⟨fun c hc => ?_, by rw [List.map_append]; exact located, fun i hi => ?_, nofun⟩
  · obtain hc | hc := List.mem_append.mp hc
    · exact h.finite c hc
    · obtain rfl := List.mem_singleton.mp hc
      exact checkFeatures_eq_ok.mp finite
  · obtain rfl := Option.some_inj.mp hi
    cases selected : cs.selected with
    | none => simp
    | some j =>
      have inside := h.inside j selected
      simp only [Option.getD_some, List.length_append, List.length_singleton]
      omega

/-- **What an accepted addition does.** -/
theorem appended (h : cs.Filed) (ok : (Clusters.add features points).Yields cs u cs') :
    cs.Appended features points cs' := by
  obtain ⟨-, -, built, accepted, rfl⟩ := add_yields ok
  refine ⟨built, accepted, rfl, ?_⟩
  cases selected : cs.selected with
  | none =>
    have none := h.some_selected selected
    simp [current?, none]
  | some i =>
    have inside := h.inside i selected
    have some : cs.entries ≠ [] := List.ne_nil_of_length_pos (by omega)
    simp [current?, selected, some, List.getElem?_append_left inside]

lemma remove (h : cs.Filed) (ok : (remove features).Yields cs u cs') : cs'.Filed := by
  obtain ⟨i, found, other, rfl⟩ := remove_yields ok
  obtain ⟨c, here, -⟩ := h.position?_eq_some.mp found
  have place : i < cs.entries.length := (List.getElem?_eq_some_iff.mp here).1
  have different : ((cs.entries.eraseIdx i).map Cluster.key).Nodup :=
    h.locates.nodup.sublist ((List.eraseIdx_sublist _ _).map _)
  refine ⟨fun c hc => h.finite c (List.mem_of_mem_eraseIdx hc),
    Roster.locates_zipIdx Cluster.key different, fun j hj => ?_, fun none => ?_⟩
  · obtain ⟨k, selected, rfl⟩ := Option.map_eq_some_iff.mp hj
    have inside := h.inside k selected
    have apart : k ≠ i := fun same => other (same ▸ selected)
    rw [List.length_eraseIdx_of_lt place]
    split <;> omega
  · have none := h.some_selected (Option.map_eq_none_iff.mp none)
    simp [none]

/-- **What an accepted removal does.** -/
theorem dropped (h : cs.Filed) (ok : (Clusters.remove features).Yields cs u cs') :
    cs.Dropped features cs' := by
  obtain ⟨i, found, other, rfl⟩ := remove_yields ok
  obtain ⟨c, here, same⟩ := h.position?_eq_some.mp found
  refine ⟨i, c, here, same, rfl, ?_⟩
  cases selected : cs.selected with
  | none => simp [current?, selected]
  | some k =>
    -- the place is moved along with what stands there
    have apart : k ≠ i := fun same => other (same ▸ selected)
    simp only [current?, selected, Option.map_some, Option.bind_some, List.getElem?_eraseIdx]
    grind

end

end Filed

/-! ### Selecting -/

/-- The same features stand in the same places, the index is the same, and so is the selection. -/
structure SameFiling (cs cs' : Clusters kn mn fn) : Prop where
  features : cs'.featureVectors = cs.featureVectors
  index : cs'.index = cs.index
  selected : cs'.selected = cs.selected

namespace SameFiling

lemma refl (cs : Clusters kn mn fn) : cs.SameFiling cs := ⟨rfl, rfl, rfl⟩

lemma setBlock (cs : Clusters kn mn fn) (i : Nat) (b : Block kn mn) :
    cs.SameFiling (cs.setBlock i b) :=
  ⟨map_setBlock (f := Cluster.features) fun _ _ => rfl, rfl, rfl⟩

lemma putCurrent (cs : Clusters kn mn fn) (b : Block kn mn) : cs.SameFiling (cs.putCurrent b) := by
  unfold Clusters.putCurrent
  split
  · exact setBlock cs _ b
  · exact refl cs

lemma filed (same : cs.SameFiling cs') (h : cs.Filed) : cs'.Filed := by
  have keys : cs'.entries.map Cluster.key = cs.entries.map Cluster.key := by
    have texts := congrArg (List.map fun f : Vector Float fn => key f.toList) same.features
    simp only [featureVectors, List.map_map] at texts
    exact texts
  have length : cs'.entries.length = cs.entries.length := by
    have lengths := congrArg List.length same.features
    simpa [featureVectors] using lengths
  refine ⟨fun c hc => ?_, by rw [same.index, keys]; exact h.locates, fun i hi => ?_, fun none => ?_⟩
  · have member : c.features ∈ cs.featureVectors := same.features ▸ List.mem_map_of_mem hc
    obtain ⟨d, hd, features⟩ := List.mem_map.mp member
    exact features ▸ h.finite d hd
  · exact length ▸ h.inside i (same.selected ▸ hi)
  · have none := h.some_selected (same.selected ▸ none)
    exact List.eq_nil_of_length_eq_zero (by rw [length, none, List.length_nil])

lemma executeAt (cs : Clusters kn mn fn) (place : Nat) (command : Autotune.Command kn mn) :
    cs.SameFiling (cs.executeAt place command).value := by
  unfold Clusters.executeAt
  split
  · exact refl cs
  · exact setBlock cs place _

lemma update (cs : Clusters kn mn fn) (bank : Bank) : cs.SameFiling (cs.update bank).value.2 := by
  unfold Clusters.update
  split
  · exact refl cs
  · exact putCurrent cs _

lemma select {selection : Selection kn mn} (ok : select.Yields cs selection cs') :
    cs.SameFiling cs' := by
  obtain ⟨c, -, -, rfl⟩ := select_yields ok
  exact putCurrent cs _

lemma apply {p : OperatingPoint kn mn} {u : Unit} (ok : (apply p).Yields cs u cs') :
    cs.SameFiling cs' := by
  obtain ⟨c, -, rfl⟩ := apply_yields ok
  exact putCurrent cs _

lemma attemptAll (op undo : Operation (Block kn mn) Unit) (cs : Clusters kn mn fn) :
    cs.SameFiling ((attemptAll op undo).run cs).state := by
  unfold run Clusters.attemptAll
  split
  · exact refl cs
  · exact ⟨map_attempt (f := Cluster.features) (fun _ => rfl) (fun _ => rfl) cs.entries, rfl, rfl⟩

end SameFiling

lemma Filed.handOver (h : cs.Filed) (best : Nat) : (cs.handOver best).value.2.Filed := by
  unfold Clusters.handOver
  split
  · exact h
  · split
    · exact h
    case h_2 next found =>
      have inside : best < cs.entries.length := (List.getElem?_eq_some_iff.mp found).1
      have chosen : Filed { cs with selected := some best } :=
        ⟨h.finite, h.locates, fun i hi => Option.some_inj.mp hi ▸ inside, nofun⟩
      exact (SameFiling.setBlock _ best _).filed chosen

lemma featureVectors_handOver (cs : Clusters kn mn fn) (best : Nat) :
    (cs.handOver best).value.2.featureVectors = cs.featureVectors := by
  unfold Clusters.handOver
  split
  · rfl
  · split
    · rfl
    · exact (SameFiling.setBlock { cs with selected := some best } best _).features

/-! ### Every run -/

/-- **Every command keeps clusters filed.** -/
theorem Filed.run (h : cs.Filed) (command : Command kn mn fn) :
    (command.operation.run cs).state.Filed := by
  -- a refusal changes nothing, or else nothing that matters here
  have accepted {α : Type} {op : Operation (Clusters kn mn fn) α} (atomic : op.Atomic)
      (ok : ∀ a cs', op.Yields cs a cs' → cs'.Filed) : (op.run cs).state.Filed := by
    cases outcome : (op.run cs).outcome with
    | error fault => rwa [(atomic cs fault outcome).1]
    | ok a => exact ok a _ ⟨outcome, rfl⟩
  have everywhere (op undo : Operation (Block kn mn) Unit) :
      ((attemptAll op undo).run cs).state.Filed := (SameFiling.attemptAll op undo cs).filed h
  cases command with
  | add features points => exact accepted atomic_add fun _ _ ok => h.add ok
  | remove features => exact accepted atomic_remove fun _ _ ok => h.remove ok
  | selectFor input =>
    show ((discard (Clusters.selectFor input)).run cs).state.Filed
    rw [run_discard_state]
    refine accepted atomic_selectFor fun _ _ ok => ?_
    obtain ⟨best, -, rfl⟩ := selectFor_yields ok
    exact h.handOver best
  | select =>
    show ((discard Clusters.select).run cs).state.Filed
    rw [run_discard_state]
    exact accepted atomic_select fun _ _ ok => (SameFiling.select ok).filed h
  | apply p => exact accepted atomic_apply fun _ _ ok => (SameFiling.apply ok).filed h
  | update bank => exact (SameFiling.update cs bank).filed h
  | direct place command => exact (SameFiling.executeAt cs place command).filed h
  | setRank state rank =>
    obtain ⟨fault, refused⟩ | ⟨first, s, -, -, same⟩ := setRank_run cs state rank
    · have same : ((setRank state rank).run cs).state = cs := by rw [refused]
      exact same.symm ▸ h
    · have all := everywhere (Block.setRank state rank) (Block.setRank state s.rank)
      exact same.symm ▸ all
  | _ => exact everywhere _ _

/-- **Clusters are filed at any time.** -/
theorem Reachable.filed {kind : Command kn mn fn → Prop} (h : cs.Reachable kind) : cs.Filed := by
  obtain ⟨template, comparisons, distance, first, commands, accepted, kinds, rfl⟩ := h
  refine after_induction (fun cs command _ filed => filed.run command) kinds ?_
  unfold ofTemplate at accepted
  split at accepted
  · cases accepted
  · cases accepted
    exact ⟨nofun, Roster.locates_nil, nofun, fun _ => rfl⟩

/-- **The list, the index and the selection of clusters.**  After any commands, whether they were
accepted or refused:

* no two clusters have the same features;
* the index leads from the key of any features to the place of the cluster with these features, and
  to no place when there is none;
* a cluster is selected just when there is one;
* an accepted removal takes the named cluster out of the list and keeps the selected cluster
  selected;
* an accepted addition appends a cluster, which becomes selected only when it is the first;
* an accepted selection keeps the clusters in their order;
* a refused addition, removal or selection changes nothing. -/
theorem directory_of_reachable {kind : Command kn mn fn → Prop} (h : cs.Reachable kind) :
    (∀ (i j : Nat) (c d : Cluster kn mn fn), cs.entries[i]? = some c → cs.entries[j]? = some d →
      SameFeatures c.features d.features → i = j) ∧
    (∀ features i, cs.position? (key features.toList) = some i ↔
      ∃ c, cs.entries[i]? = some c ∧ SameFeatures features c.features) ∧
    (cs.selected.isSome = true ↔ cs.entries ≠ []) ∧
    (cs.current?.isSome = true ↔ cs.entries ≠ []) ∧
    (∀ features u cs', (remove features).Yields cs u cs' → cs.Dropped features cs') ∧
    (∀ features points u cs', (add features points).Yields cs u cs' →
      cs.Appended features points cs') ∧
    (∀ input other cs', (selectFor input).Yields cs other cs' →
      cs'.featureVectors = cs.featureVectors) ∧
    (∀ features points fault, ((add features points).run cs).outcome = .error fault →
      ((add features points).run cs).state = cs) ∧
    (∀ features fault, ((remove features).run cs).outcome = .error fault →
      ((remove features).run cs).state = cs) ∧
    (∀ input fault, ((selectFor input).run cs).outcome = .error fault →
      ((selectFor input).run cs).state = cs) := by
  have filed := h.filed
  refine ⟨fun i j c d hc hd same => filed.place_unique hc hd same,
    fun features i => filed.position?_eq_some, filed.selected_isSome, filed.current?_isSome,
    fun features u cs' ok => filed.dropped ok, fun features points u cs' ok => filed.appended ok,
    fun input other cs' ok => ?_, fun features points fault refused => ?_,
    fun features fault refused => ?_, fun input fault refused => ?_⟩
  · obtain ⟨best, -, rfl⟩ := selectFor_yields ok
    exact featureVectors_handOver cs best
  · exact (atomic_add cs fault refused).1
  · exact (atomic_remove cs fault refused).1
  · exact (atomic_selectFor cs fault refused).1

/-- The features of an input that has just one. -/
def oneFeature (x : Float) : Vector Float 1 := .replicate 1 x

/-- No clusters yet, to be made with one state. -/
def noClusters : Clusters 1 1 1 :=
  ⟨Block.sampleBuilder, .replicate 1 .dontCare, .euclidean, [], .empty, none⟩

/-- Three clusters, of which the last one serves the input. -/
def sampleClusters : Clusters 1 1 1 :=
  noClusters.after
    [.add (oneFeature 0) Block.sampleBuilder.points,
      .add (oneFeature 1) Block.sampleBuilder.points,
      .add (oneFeature 2) Block.sampleBuilder.points, .selectFor (oneFeature 2)]

lemma sampleClusters_reachable : sampleClusters.Reachable fun _ => True :=
  ⟨_, _, _, _, _, rfl, fun _ _ => trivial, rfl⟩

/-- The cluster at zero is dropped by the name of the negative zero, and the last one, which moves
up, stays selected. -/
theorem directory_of_reachable_sample :
    sampleClusters.Reachable (fun _ => True) ∧ sampleClusters.selected = some 2 ∧
      ∃ cs', (remove (oneFeature (-0))).Yields sampleClusters ⟨⟩ cs' ∧ cs'.selected = some 1 ∧
        sampleClusters.Dropped (oneFeature (-0)) cs' := by
  have accepted : ((remove (oneFeature (-0))).run sampleClusters).outcome = .ok ⟨⟩ := by
    obtain ⟨u, ok⟩ := exists_eq_ok (x := ((remove (oneFeature (-0))).run sampleClusters).outcome)
      (by decide +kernel)
    exact ok
  refine ⟨sampleClusters_reachable, by decide +kernel, _, ⟨accepted, rfl⟩, by decide +kernel, ?_⟩
  obtain ⟨-, -, -, -, dropped, -⟩ := directory_of_reachable sampleClusters_reachable
  exact dropped _ _ _ ⟨accepted, rfl⟩

end Clusters

end Autotune
