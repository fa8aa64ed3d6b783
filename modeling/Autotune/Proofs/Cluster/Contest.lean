import Autotune.Proofs.Cluster.Directory
import Autotune.Proofs.Cluster.Distance
import Mathlib.Logic.Relation
import Mathlib.Order.Defs.LinearOrder

/-!
# The contest for an input

The clusters are gone through once.  The first one leads, and each of the others takes the lead if
the leader gives way to it (`lead`).  Whoever leads in the end serves the input
(`Clusters.server?`), and this is all that choosing a cluster depends on (`Clusters.run_selectFor`).

Nothing is assumed of the relation by which clusters give way, so little can be said about who leads
in the end: it gives way to nobody who came later, and whoever came earlier lost the lead to it
through a chain of leaders or did not take it from one of them (`Leads`).  When giving way is a
matter of a key, that makes it the first cluster with the least key (`Leads.key_le`,
`Leads.key_lt`).
-/

namespace Autotune

open Operation Relation

/-! ### Leading -/

section

variable {α : Type} {givesWay : α → α → Bool} {all : List α} {a b : α} {i : Nat}

/-- Who leads in the end, and its place. -/
def lead (givesWay : α → α → Bool) (first : α) (others : List α) : α × Nat :=
  (others.zipIdx 1).foldl
    (fun leader other => if givesWay leader.1 other.1 then other else leader) (first, 0)

/-- One element of a list gives way to another one. -/
def Loses (givesWay : α → α → Bool) (all : List α) (a b : α) : Prop :=
  a ∈ all ∧ b ∈ all ∧ givesWay a b = true

/-- What is known of the leader at a place, after a whole list. -/
structure Leads (givesWay : α → α → Bool) (all : List α) (i : Nat) (a : α) : Prop where
  here : all[i]? = some a
  /-- It gives way to nobody who came later. -/
  later : ∀ j b, i < j → all[j]? = some b → givesWay a b = false
  /-- Whoever came earlier was the leader at that time, or that one did not give way to it, and from
  that leader the lead was lost to the last one. -/
  earlier : ∀ j b, j < i → all[j]? = some b → ∃ c, (c = b ∨ givesWay c b = false) ∧
    TransGen (Loses givesWay all) c a

lemma leads_singleton (givesWay : α → α → Bool) (a : α) : Leads givesWay [a] 0 a := by
  refine ⟨rfl, fun j b later found => ?_, fun j b earlier found => ?_⟩
  · have inside : j < [a].length := (List.getElem?_eq_some_iff.mp found).1
    rw [List.length_singleton] at inside
    omega
  · omega

namespace Leads

/-- One more element comes and takes the lead, or does not. -/
lemma concat (h : Leads givesWay all i a) (b : α) :
    if givesWay a b then Leads givesWay (all ++ [b]) all.length b
    else Leads givesWay (all ++ [b]) i a := by
  have inside : i < all.length := (List.getElem?_eq_some_iff.mp h.here).1
  have more {c d : α} (lost : TransGen (Loses givesWay all) c d) :
      TransGen (Loses givesWay (all ++ [b])) c d :=
    lost.lift id fun _ _ ⟨hc, hd, gives⟩ =>
      ⟨List.mem_append_left _ hc, List.mem_append_left _ hd, gives⟩
  have old {j : Nat} {c : α} (before : j < all.length) (found : (all ++ [b])[j]? = some c) :
      all[j]? = some c := by rwa [List.getElem?_append_left before] at found
  have outside {j : Nat} {c : α} (found : (all ++ [b])[j]? = some c) : j < all.length + 1 := by
    simpa using (List.getElem?_eq_some_iff.mp found).1
  split
  case isTrue gives =>
    have taken : Loses givesWay (all ++ [b]) a b :=
      ⟨List.mem_append_left _ (List.mem_of_getElem? h.here), by simp, gives⟩
    refine ⟨by simp, fun j c later found => ?_, fun j c before found => ?_⟩
    · have bound := outside found
      omega
    · obtain earlier | rfl | later := Nat.lt_trichotomy j i
      · obtain ⟨d, passed, lost⟩ := h.earlier j c earlier (old before found)
        exact ⟨d, passed, (more lost).tail taken⟩
      · have same : c = a := Option.some_inj.mp ((old before found).symm.trans h.here)
        exact ⟨a, .inl same.symm, .single taken⟩
      · exact ⟨a, .inr (h.later j c later (old before found)), .single taken⟩
  case isFalse keeps =>
    have keeps : givesWay a b = false := Bool.eq_false_of_not_eq_true keeps
    refine ⟨by rw [List.getElem?_append_left inside, h.here], fun j c later found => ?_,
      fun j c before found => ?_⟩
    · obtain before | rfl : j < all.length ∨ j = all.length := by
        have bound := outside found
        omega
      · exact h.later j c later (old before found)
      · obtain rfl : b = c := by simpa using found
        exact keeps
    · obtain ⟨d, passed, lost⟩ := h.earlier j c before (old (by omega) found)
      exact ⟨d, passed, more lost⟩

/-- **The leader of a contest leads.** -/
theorem lead (givesWay : α → α → Bool) (first : α) (others : List α) :
    Leads givesWay (first :: others) (lead givesWay first others).2
      (lead givesWay first others).1 := by
  induction others using List.reverseRecOn with
  | nil => exact leads_singleton givesWay first
  | append_singleton others b ih =>
    have next := ih.concat b
    rw [List.length_cons] at next
    rw [Autotune.lead, List.zipIdx_append, List.zipIdx_singleton, List.foldl_concat, Nat.add_comm]
    dsimp only
    split
    case isTrue gives =>
      rw [Autotune.lead, if_pos gives] at next
      exact next
    case isFalse keeps =>
      rw [Autotune.lead, if_neg keeps] at next
      exact next

/-! ### Giving way by a key -/

section

variable {κ : Type} [LinearOrder κ] {key : α → κ} {j : Nat}

lemma key_lt_of_loses (byKey : ∀ a ∈ all, ∀ b ∈ all, givesWay a b = true ↔ key b < key a)
    (lost : TransGen (Loses givesWay all) a b) : key b < key a := by
  induction lost with
  | single step =>
    obtain ⟨ha, hb, gives⟩ := step
    exact (byKey _ ha _ hb).mp gives
  | tail _ step ih =>
    obtain ⟨hb, hc, gives⟩ := step
    exact ((byKey _ hb _ hc).mp gives).trans ih

lemma key_le_of_passed (byKey : ∀ a ∈ all, ∀ b ∈ all, givesWay a b = true ↔ key b < key a)
    (ha : a ∈ all) (hb : b ∈ all) (passed : a = b ∨ givesWay a b = false) : key a ≤ key b := by
  obtain rfl | keeps := passed
  · exact le_refl _
  · refine le_of_not_gt fun less => ?_
    rw [(byKey a ha b hb).mpr less] at keeps
    cases keeps

lemma mem_of_loses (lost : TransGen (Loses givesWay all) a b) : a ∈ all := by
  induction lost with
  | single step => exact step.1
  | tail _ _ ih => exact ih

/-- **Whoever came before the leader has a greater key.** -/
theorem key_lt (h : Leads givesWay all i a)
    (byKey : ∀ a ∈ all, ∀ b ∈ all, givesWay a b = true ↔ key b < key a) (before : j < i)
    (found : all[j]? = some b) : key a < key b := by
  obtain ⟨c, passed, lost⟩ := h.earlier j b before found
  have less : key a < key c := key_lt_of_loses byKey lost
  have most : key c ≤ key b :=
    key_le_of_passed byKey (mem_of_loses lost) (List.mem_of_getElem? found) passed
  exact less.trans_le most

/-- **Nobody has a smaller key than the leader.** -/
theorem key_le (h : Leads givesWay all i a)
    (byKey : ∀ a ∈ all, ∀ b ∈ all, givesWay a b = true ↔ key b < key a) (hb : b ∈ all) :
    key a ≤ key b := by
  obtain ⟨j, found⟩ := List.mem_iff_getElem?.mp hb
  obtain earlier | rfl | later := Nat.lt_trichotomy j i
  · exact (h.key_lt byKey earlier found).le
  · have same : b = a := Option.some_inj.mp (found.symm.trans h.here)
    exact same ▸ le_refl _
  · exact key_le_of_passed byKey (List.mem_of_getElem? h.here) hb
      (.inr (h.later j b later found))

end

end Leads

end

/-! ### The cluster that serves an input -/

namespace Clusters

variable {kn mn fn : Nat} {cs cs' : Clusters kn mn fn} {c : Cluster kn mn fn}
  {input : Vector Float fn} {i : Nat}

lemma Filed.finite_featureVectors (filed : cs.Filed) : ∀ f ∈ cs.featureVectors, Finite f := by
  intro f member
  obtain ⟨c, hc, rfl⟩ := List.mem_map.mp member
  exact filed.finite c hc

lemma getElem?_featureVectors (found : cs.entries[i]? = some c) :
    cs.featureVectors[i]? = some c.features := by
  rw [featureVectors, List.getElem?_map, found, Option.map_some]

/-- The place of the cluster that serves an input, whichever is selected now. -/
def server? (cs : Clusters kn mn fn) (input : Vector Float fn) : Option Nat :=
  match cs.featureVectors with
  | [] => none
  | first :: others => some (lead (cs.prefers input) first others).2

lemma bestFor_eq (cs : Clusters kn mn fn) (input : Vector Float fn) (first : Cluster kn mn fn)
    (others : List (Cluster kn mn fn)) :
    cs.bestFor input first others =
      (lead (cs.prefers input) first.features (others.map Cluster.features)).2 := by
  unfold bestFor lead
  dsimp only
  rw [List.zipIdx_map, List.foldl_map]
  -- both passes make the same choices, so they stay at the same place
  have together (entries : List (Cluster kn mn fn × Nat)) (best : Cluster kn mn fn × Nat) :
      entries.foldl
          (fun leader other => if cs.prefers input leader.1 (Prod.map Cluster.features id other).1
            then Prod.map Cluster.features id other else leader)
          (Prod.map Cluster.features id best) =
        Prod.map Cluster.features id (entries.foldl
          (fun best other => if cs.prefers input best.1.features other.1.features then other
            else best) best) := by
    refine List.foldl_hom _ fun best other => ?_
    exact (apply_ite (Prod.map Cluster.features id) _ _ _).symm
  exact (congrArg Prod.snd (together (others.zipIdx 1) (first, 0))).symm

/-- **Selecting is checking the input and handing over to the cluster that serves it.** -/
theorem run_selectFor (cs : Clusters kn mn fn) (input : Vector Float fn) :
    (selectFor input).run cs =
      match checkFeatures input.toList, cs.server? input with
      | .error fault, _ => ⟨.error fault, cs, []⟩
      | .ok _, none => ⟨.error .noCluster, cs, []⟩
      | .ok _, some i =>
        ⟨.ok (cs.handOver i).value.1, (cs.handOver i).value.2, (cs.handOver i).events⟩ := by
  unfold selectFor server? featureVectors
  rw [run_check_bind]
  cases checkFeatures input.toList with
  | error fault => rfl
  | ok u =>
    dsimp only
    rw [run_read_bind]
    cases entries : cs.entries with
    | nil => rfl
    | cons first others =>
      dsimp only
      rw [run_step, bestFor_eq]
      rfl

/-- **An accepted selection hands over to the cluster that serves the input.** -/
theorem selectFor_yields_iff {moved : Bool} : (selectFor input).Yields cs moved cs' ↔
    Finite input ∧ ∃ i, cs.server? input = some i ∧ (cs.handOver i).value = (moved, cs') := by
  unfold Yields Finite
  rw [run_selectFor, ← checkFeatures_eq_ok]
  cases checkFeatures input.toList with
  | error fault => simp
  | ok u => cases cs.server? input <;> simp [Prod.ext_iff]

lemma exists_server (some : cs.entries ≠ []) (input : Vector Float fn) :
    ∃ i c, cs.server? input = .some i ∧ cs.entries[i]? = .some c ∧
      Leads (cs.prefers input) cs.featureVectors i c.features := by
  obtain ⟨first, others, entries⟩ := List.exists_cons_of_ne_nil some
  have vectors : cs.featureVectors = first.features :: others.map Cluster.features := by
    rw [featureVectors, entries, List.map_cons]
  have leads := Leads.lead (cs.prefers input) first.features (others.map Cluster.features)
  rw [← vectors] at leads
  have here := leads.here
  rw [featureVectors, List.getElem?_map, Option.map_eq_some_iff] at here
  obtain ⟨c, found, same⟩ := here
  rw [← same] at leads
  exact ⟨_, c, by rw [server?, vectors], found, leads⟩

/-! ### What the choice depends on -/

/-- The same features stand in the same places, and they are compared and measured alike. -/
structure SameRules (cs cs' : Clusters kn mn fn) : Prop where
  features : cs'.featureVectors = cs.featureVectors
  comparisons : cs'.comparisons = cs.comparisons
  distance : cs'.distance = cs.distance

/-- **The choice depends on the features, the comparisons and the distance.** -/
theorem SameRules.server? (same : cs.SameRules cs') (input : Vector Float fn) :
    cs'.server? input = cs.server? input := by
  have alike : cs'.prefers input = cs.prefers input := by
    funext f g
    unfold prefers admissible
    rw [same.comparisons, same.distance]
  unfold Clusters.server?
  rw [same.features, alike]

lemma sameRules_handOver (cs : Clusters kn mn fn) (i : Nat) :
    cs.SameRules (cs.handOver i).value.2 := by
  refine ⟨featureVectors_handOver cs i, ?_, ?_⟩
  · unfold handOver
    split <;> [rfl; split <;> rfl]
  · unfold handOver
    split <;> [rfl; split <;> rfl]

lemma selected_handOver (inside : i < cs.entries.length) :
    (cs.handOver i).value.2.selected = some i := by
  unfold handOver
  split
  case isTrue same => exact same
  case isFalse other =>
    rw [List.getElem?_eq_getElem inside]
    rfl

lemma moved_handOver (inside : i < cs.entries.length) :
    (cs.handOver i).value.1 = true ↔ cs.selected ≠ some i := by
  unfold handOver
  split
  case isTrue same => simp [Logged.quiet, same]
  case isFalse other =>
    rw [List.getElem?_eq_getElem inside]
    exact iff_of_true rfl other

lemma server?_lt (server : cs.server? input = some i) : i < cs.entries.length := by
  have some : cs.entries ≠ [] := by
    rintro none
    simp [server?, featureVectors, none] at server
  obtain ⟨j, c, same, found, -⟩ := exists_server some input
  rw [server] at same
  cases same
  exact (List.getElem?_eq_some_iff.mp found).1

/-- **A finite input selects the cluster that serves it.** -/
theorem exists_selected (finite : Finite input) (server : cs.server? input = some i) :
    ∃ moved cs', (selectFor input).Yields cs moved cs' ∧ cs.SameRules cs' ∧
      cs'.selected = some i ∧ (moved = true ↔ cs.selected ≠ some i) := by
  have inside := server?_lt server
  exact ⟨_, _, selectFor_yields_iff.mpr ⟨finite, i, server, rfl⟩, sameRules_handOver cs i,
    selected_handOver inside, moved_handOver inside⟩

lemma run_selectFor_selected (finite : Finite input) (server : cs.server? input = some i)
    (same : cs.selected = some i) : (selectFor input).run cs = ⟨.ok false, cs, []⟩ := by
  rw [run_selectFor, checkFeatures_eq_ok.mpr finite, server]
  dsimp only
  rw [handOver, if_pos same]
  rfl

/-- **Selecting for the same input again changes nothing.** -/
theorem selectFor_again {moved : Bool} (ok : (selectFor input).Yields cs moved cs') :
    (selectFor input).run cs' = ⟨.ok false, cs', []⟩ := by
  obtain ⟨finite, i, server, done⟩ := selectFor_yields_iff.mp ok
  have same : (cs.handOver i).value.2 = cs' := congrArg Prod.snd done
  have server' : cs'.server? input = some i := by
    rw [← same, (sameRules_handOver cs i).server? input, server]
  have selected : cs'.selected = some i := by rw [← same, selected_handOver (server?_lt server)]
  exact run_selectFor_selected finite server' selected

end Clusters

end Autotune
