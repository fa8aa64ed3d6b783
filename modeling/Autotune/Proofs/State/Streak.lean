import Autotune.Proofs.State.Votes
import Mathlib.Data.List.DropRight

/-!
# What a debounced status reports

A `Debounce` sees one vote at a time and keeps nothing but a status and a count.  What it reports can
still be read off the list of all votes since the last reset, with `k` the number of votes that its
inertia asks for:

* the status is the value of the latest `k` equal votes in a row (`Debounce.Latest`), and satisfied
  as long as there are none;
* the count is the number of votes at the end of the list that speak against the status.

`Debounce.Follows` says this of one status and one list, and every vote keeps it
(`Debounce.Follows.concat`).  `Debounce.status_of_inputs` puts it together for every history.
-/

namespace Autotune

lemma Status.vote_unique {status : Status} {vote vote' : Bool} (h : Status.ofVote vote ≠ status)
    (h' : Status.ofVote vote' ≠ status) : vote = vote' := by
  cases status <;> cases vote <;> cases vote' <;> simp_all [Status.ofVote]

namespace Debounce

variable {inertia : UInt32} {d : Debounce} {k : Nat} {vote : Bool} {votes later : List Bool}
  {status : Status}

/-! ### Votes in a row -/

/-- Among the votes are `k` equal ones in a row, and `later` came after them. -/
def Row (k : Nat) (vote : Bool) (later votes : List Bool) : Prop :=
  ∃ before, before ++ List.replicate k vote ++ later = votes

/-- The value of the latest `k` equal votes in a row. -/
def Latest (k : Nat) (votes : List Bool) (vote : Bool) : Prop :=
  ∃ later, Row k vote later votes ∧
    ∀ vote' later', Row k vote' later' votes → later.length ≤ later'.length

/-- The votes against a status with which a list of votes ends. -/
def against (status : Status) (votes : List Bool) : List Bool :=
  votes.rtakeWhile fun vote => Status.ofVote vote ≠ status

/-- With one vote more, equal votes in a row either end with it or were there before. -/
lemma row_concat {last : Bool} :
    Row k vote later (votes ++ [last]) ↔
      (later = [] ∧ List.replicate k vote <:+ votes ++ [last]) ∨
        ∃ earlier, later = earlier ++ [last] ∧ Row k vote earlier votes := by
  constructor
  · rintro ⟨before, h⟩
    rcases List.eq_nil_or_concat' later with rfl | ⟨earlier, vote', rfl⟩
    · left
      exact ⟨rfl, before, by simpa using h⟩
    · right
      rw [← List.append_assoc] at h
      obtain ⟨rest, same⟩ := List.append_inj' h rfl
      obtain rfl := List.singleton_inj.mp same
      exact ⟨earlier, rfl, before, rest⟩
  · rintro (⟨rfl, before, h⟩ | ⟨earlier, rfl, before, h⟩)
    · exact ⟨before, by simpa using h⟩
    · exact ⟨before, by rw [← h]; simp⟩

lemma Row.unique {vote' : Bool} {later' : List Bool} (pos : 0 < k) (h : Row k vote later votes)
    (h' : Row k vote' later' votes) (same : later.length = later'.length) : vote = vote' := by
  obtain ⟨before, rfl⟩ := h
  obtain ⟨before', h'⟩ := h'
  have rows := (List.append_inj' h' same.symm).1
  have equal : List.replicate k vote' = List.replicate k vote :=
    (List.append_inj' rows (by simp)).2
  rw [List.replicate_right_inj (by omega)] at equal
  exact equal.symm

lemma Latest.unique {vote' : Bool} (pos : 0 < k) (h : Latest k votes vote)
    (h' : Latest k votes vote') : vote = vote' := by
  obtain ⟨later, row, least⟩ := h
  obtain ⟨later', row', least'⟩ := h'
  exact row.unique pos row' (le_antisymm (least _ _ row') (least' _ _ row))

lemma latest_of_suffix (row : List.replicate k vote <:+ votes) : Latest k votes vote := by
  obtain ⟨before, h⟩ := row
  exact ⟨[], ⟨before, by simpa using h⟩, fun _ _ _ => Nat.zero_le _⟩

/-- What was the latest row is still the latest one, unless the last vote completes another. -/
lemma Latest.concat {last : Bool} (h : Latest k votes vote)
    (incomplete : ∀ vote', ¬ List.replicate k vote' <:+ votes ++ [last]) :
    Latest k (votes ++ [last]) vote := by
  obtain ⟨later, row, least⟩ := h
  refine ⟨later ++ [last], row_concat.mpr (.inr ⟨later, rfl, row⟩), fun vote' later' row' => ?_⟩
  rcases row_concat.mp row' with ⟨-, complete⟩ | ⟨earlier, rfl, before⟩
  · exact absurd complete (incomplete vote')
  · have := least vote' earlier before
    simp only [List.length_append]
    omega

/-! ### Votes against a status -/

lemma against_concat (last : Bool) :
    against status (votes ++ [last]) =
      if Status.ofVote last = status then [] else against status votes ++ [last] := by
  unfold against
  rw [List.rtakeWhile_concat]
  by_cases h : Status.ofVote last = status <;> simp [h]

lemma le_length_against (row : List.replicate k vote <:+ votes)
    (disagrees : Status.ofVote vote ≠ status) : k ≤ (against status votes).length := by
  obtain ⟨before, rfl⟩ := row
  induction k with
  | zero => exact Nat.zero_le _
  | succ k ih =>
    rw [List.replicate_succ', ← List.append_assoc, against_concat, if_neg disagrees,
      List.length_append]
    exact Nat.succ_le_succ ih

/-- All votes against a status are equal, so those at the end are a row. -/
lemma replicate_suffix (disagrees : Status.ofVote vote ≠ status)
    (enough : (against status votes).length = k) : List.replicate k vote <:+ votes := by
  have row : against status votes = List.replicate k vote := by
    rw [List.eq_replicate_iff]
    refine ⟨enough, fun v hv => ?_⟩
    have counted := List.mem_rtakeWhile_imp hv
    exact Status.vote_unique (by simpa using counted) disagrees
  rw [← row]
  exact List.rtakeWhile_suffix _ _

/-! ### One vote more -/

/-- What the status and the count of a debounced status say about the votes. -/
structure Follows (d : Debounce) (k : Nat) (votes : List Bool) : Prop where
  threshold : d.threshold.toNat = k
  streak : d.streak.toNat = (against d.status votes).length
  below : d.streak.toNat < k
  reported : (∃ vote, Latest k votes vote ∧ d.status = Status.ofVote vote) ∨
    (∀ vote later, ¬ Row k vote later votes) ∧ d.status = .satisfied

lemma Follows.reported_concat {last : Bool} (h : d.Follows k votes)
    (incomplete : ∀ vote, Status.ofVote vote ≠ d.status →
      ¬ List.replicate k vote <:+ votes ++ [last]) :
    (∃ vote, Latest k (votes ++ [last]) vote ∧ d.status = Status.ofVote vote) ∨
      (∀ vote later, ¬ Row k vote later (votes ++ [last])) ∧ d.status = .satisfied := by
  by_cases complete : ∃ vote, List.replicate k vote <:+ votes ++ [last]
  · obtain ⟨vote, row⟩ := complete
    left
    refine ⟨vote, latest_of_suffix row, ?_⟩
    by_contra disagrees
    exact incomplete vote (fun same => disagrees same.symm) row
  · have none : ∀ vote, ¬ List.replicate k vote <:+ votes ++ [last] := fun vote row =>
      complete ⟨vote, row⟩
    rcases h.reported with ⟨vote, latest, same⟩ | ⟨absent, satisfied⟩
    · exact .inl ⟨vote, latest.concat none, same⟩
    · refine .inr ⟨fun vote later row => ?_, satisfied⟩
      rcases row_concat.mp row with ⟨-, row⟩ | ⟨earlier, -, row⟩
      · exact none vote row
      · exact absent vote earlier row

/-- A vote completes a row against the status when one less than `k` votes against it came before. -/
lemma Follows.suffix_iff (h : d.Follows k votes) (disagrees : Status.ofVote vote ≠ d.status) :
    List.replicate k vote <:+ votes ++ [vote] ↔ d.streak.toNat + 1 = k := by
  have counted : (against d.status (votes ++ [vote])).length = d.streak.toNat + 1 := by
    rw [against_concat, if_neg disagrees, List.length_append, h.streak]
    rfl
  constructor
  · intro row
    have := le_length_against row disagrees
    have := h.below
    omega
  · intro full
    exact replicate_suffix disagrees (counted.trans full)

/-- **Every vote keeps what a status says about the votes.** -/
theorem Follows.concat (h : d.Follows k votes) (last : Bool) :
    (d.vote last).2.Follows k (votes ++ [last]) := by
  have room := h.below
  by_cases agrees : Status.ofVote last = d.status
  · -- the count starts anew, and no row against the status can end here
    rw [vote_of_eq agrees]
    refine ⟨h.threshold, ?_, Nat.lt_of_le_of_lt (Nat.zero_le _) room, h.reported_concat ?_⟩
    · rw [against_concat, if_pos agrees]
      rfl
    · intro vote disagrees row
      have := le_length_against row disagrees
      rw [against_concat, if_pos agrees, List.length_nil] at this
      omega
  · have suffix := h.suffix_iff agrees
    rw [vote_of_ne agrees (h.threshold ▸ room), h.threshold]
    by_cases full : d.streak.toNat + 1 = k
    · rw [if_pos full]
      refine ⟨h.threshold, ?_, Nat.lt_of_le_of_lt (Nat.zero_le _) room, .inl ⟨last, ?_, rfl⟩⟩
      · rw [against_concat, if_pos rfl]
        rfl
      · exact latest_of_suffix (suffix.mpr full)
    · rw [if_neg full]
      have counted : (UInt32.ofNat (d.streak.toNat + 1)).toNat = d.streak.toNat + 1 := by
        have bound := d.threshold.toNat_lt_size
        have := h.threshold
        exact UInt32.toNat_ofNat_of_lt' (by omega)
      refine ⟨h.threshold, ?_, by simp only [counted]; omega, h.reported_concat ?_⟩
      · rw [against_concat, if_neg agrees, List.length_append, ← h.streak]
        exact counted
      · intro vote disagrees row
        obtain rfl := Status.vote_unique disagrees agrees
        exact full (suffix.mp row)

lemma threshold_start (inertia : UInt32) :
    (start inertia).threshold.toNat = max inertia.toNat 1 := by
  unfold threshold start
  by_cases zero : inertia = 0
  · simp [zero]
  · have pos : inertia.toNat ≠ 0 := fun none => zero (UInt32.toNat_inj.mp none)
    simp only [if_neg zero]
    omega

lemma follows_start (inertia : UInt32) : (start inertia).Follows (max inertia.toNat 1) [] := by
  refine ⟨threshold_start inertia, rfl, ?_, .inr ⟨?_, rfl⟩⟩
  · show 0 < max inertia.toNat 1
    omega
  · rintro vote later ⟨before, h⟩
    have := congrArg List.length h
    simp at this

/-! ### A whole history -/

/-- What a debounced status is given. -/
inductive Input where
  | vote (satisfied : Bool)
  | reset

/-- The status after one more input. -/
def take (d : Debounce) : Input → Debounce
  | .vote satisfied => (d.vote satisfied).2
  | .reset => d.reset

/-- The votes since the last reset, after one more input. -/
def remembered (votes : List Bool) : Input → List Bool
  | .vote satisfied => votes ++ [satisfied]
  | .reset => []

lemma follows_foldl (inertia : UInt32) (inputs : List Input) :
    (inputs.foldl take (start inertia)).Follows (max inertia.toNat 1) (inputs.foldl remembered []) ∧
      (inputs.foldl take (start inertia)).inertia = inertia := by
  induction inputs using List.reverseRecOn with
  | nil => exact ⟨follows_start inertia, rfl⟩
  | append_singleton inputs input ih =>
    obtain ⟨follows, same⟩ := ih
    rw [List.foldl_concat, List.foldl_concat]
    cases input with
    | vote satisfied => exact ⟨follows.concat satisfied, (vote_inertia _ _).trans same⟩
    | reset =>
      rw [take, remembered, reset, same]
      exact ⟨follows_start inertia, rfl⟩

/-- **What a debounced status reports, after any votes and resets.**  With `k` the inertia, but at
least one, and the votes since the last reset:

* the status is the value of the latest `k` equal votes in a row, and satisfied if there are none;
* the count is that of the last votes against the status; it stays below `k`, so that there is
  always room for one more;
* a vote is announced as a change exactly when the status changes with it, which is when it is the
  last of `k` votes in a row against the status. -/
theorem status_of_inputs (inertia : UInt32) (inputs : List Input) :
    let d := inputs.foldl take (start inertia)
    let votes := inputs.foldl remembered []
    let k := max inertia.toNat 1
    (∀ vote, Latest k votes vote → d.status = Status.ofVote vote) ∧
      ((∃ vote, Latest k votes vote) ∨
        (∀ vote later, ¬ Row k vote later votes) ∧ d.status = .satisfied) ∧
      d.streak.toNat = (against d.status votes).length ∧ d.streak.toNat < k ∧
      d.lengthened.toNat = d.streak.toNat + 1 ∧
      ∀ vote, ((d.vote vote).1 = true ↔ (d.vote vote).2.status ≠ d.status) ∧
        ((d.vote vote).1 = true ↔
          Status.ofVote vote ≠ d.status ∧ List.replicate k vote <:+ votes ++ [vote]) := by
  intro d votes k
  have follows : d.Follows k votes := (follows_foldl inertia inputs).1
  have room := follows.below
  have pos : 0 < k := Nat.zero_lt_of_lt room
  have bound : k < UInt32.size := by
    rw [← follows.threshold]
    exact d.threshold.toNat_lt_size
  refine ⟨?_, ?_, follows.streak, room, toNat_lengthened (by omega), fun vote => ?_⟩
  · intro vote latest
    rcases follows.reported with ⟨vote', latest', same⟩ | ⟨absent, -⟩
    · rw [latest.unique pos latest', same]
    · obtain ⟨later, row, -⟩ := latest
      exact absurd row (absent vote later)
  · exact follows.reported.imp_left fun ⟨vote, latest, _⟩ => ⟨vote, latest⟩
  · by_cases agrees : Status.ofVote vote = d.status
    · rw [vote_of_eq agrees]
      simp [agrees]
    · rw [vote_of_ne agrees (follows.threshold ▸ room), follows.suffix_iff agrees,
        follows.threshold]
      split <;> simp [*]

/-- One vote for the goal is not enough to recover from two against it. -/
theorem status_of_inputs_sample :
    let inputs : List Input := [.vote true, .reset, .vote false, .vote false, .vote true]
    let d := inputs.foldl take (start 2)
    Latest 2 (inputs.foldl remembered []) false ∧ d.status = .violated ∧ d.streak.toNat = 1 := by
  intro inputs d
  have missed : Latest 2 [false, false] false := latest_of_suffix (List.suffix_refl _)
  have latest : Latest 2 (inputs.foldl remembered []) false := missed.concat (by decide)
  obtain ⟨reported, -, streak, -⟩ := status_of_inputs 2 inputs
  have violated : d.status = .violated := reported false latest
  exact ⟨latest, violated, streak.trans (by decide)⟩

end Debounce

end Autotune
