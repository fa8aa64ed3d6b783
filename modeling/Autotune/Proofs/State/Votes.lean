import Autotune.Proofs.Roster
import Autotune.State.Basic
import Mathlib.Tactic.Lemma

/-!
# Votes

What a constraint has observed is a list of votes: `Constraint.vote?` is the vote that an observed
value casts and `Debounce.after` is the status after a list of votes.  What a state makes of the
observations of a number of times (`State.heard`) is that each constraint takes its votes in that
order.

A fresh status that is voted for stays fresh.  One that is voted against over and over counts the
votes and changes with the last one of its threshold (`Debounce.start_after_replicate`).
-/

namespace Autotune

namespace Debounce

variable {d : Debounce} {inertia : UInt32} {votes : List Bool}

/-- The status after a list of votes. -/
def after (d : Debounce) (votes : List Bool) : Debounce :=
  votes.foldl (fun d vote => (d.vote vote).2) d

lemma after_append (d : Debounce) (votes more : List Bool) :
    d.after (votes ++ more) = (d.after votes).after more :=
  List.foldl_append

lemma vote_inertia (d : Debounce) (satisfied : Bool) :
    (d.vote satisfied).2.inertia = d.inertia := by
  unfold vote
  dsimp only
  split_ifs <;> rfl

lemma after_inertia (d : Debounce) (votes : List Bool) : (d.after votes).inertia = d.inertia := by
  induction votes generalizing d with
  | nil => rfl
  | cons vote rest ih => exact (ih _).trans (vote_inertia d vote)

lemma eq_start (satisfied : d.status = .satisfied) (none : d.streak = 0) :
    d = start d.inertia := by
  obtain ⟨inertia, status, streak⟩ := d
  rw [start, ← satisfied, ← none]

lemma start_after_of_met (met : ∀ vote ∈ votes, vote = true) :
    (start inertia).after votes = start inertia := by
  induction votes with
  | nil => rfl
  | cons vote rest ih =>
    obtain ⟨rfl, rest⟩ := List.forall_mem_cons.mp met
    exact ih rest

/-! ### One vote after the other against a fresh status -/

/-- A status that was fresh and then got a number of votes against it. -/
def missed (inertia : UInt32) (n : Nat) : Debounce :=
  if n < (start inertia).threshold.toNat then ⟨inertia, .satisfied, .ofNat n⟩
  else ⟨inertia, .violated, 0⟩

lemma threshold_pos (d : Debounce) : 0 < d.threshold.toNat := by
  unfold threshold
  split
  case isTrue => decide
  case isFalse some => exact Nat.pos_of_ne_zero fun zero => some (UInt32.toNat_inj.mp zero)

lemma toNat_lengthened (room : d.streak.toNat + 1 < UInt32.size) :
    d.lengthened.toNat = d.streak.toNat + 1 := by
  have notFull : d.streak ≠ 0xffffffff := by
    intro full
    rw [full] at room
    exact absurd room (by decide)
  rw [lengthened, if_neg notFull, UInt32.toNat_add]
  exact Nat.mod_eq_of_lt room

lemma vote_of_eq {satisfied : Bool} (agrees : Status.ofVote satisfied = d.status) :
    d.vote satisfied = (false, { d with streak := 0 }) := by
  rw [vote, if_pos agrees]

lemma vote_of_ne {satisfied : Bool} (disagrees : Status.ofVote satisfied ≠ d.status)
    (below : d.streak.toNat < d.threshold.toNat) :
    d.vote satisfied =
      if d.streak.toNat + 1 = d.threshold.toNat then
        (true, ⟨d.inertia, Status.ofVote satisfied, 0⟩)
      else (false, ⟨d.inertia, d.status, .ofNat (d.streak.toNat + 1)⟩) := by
  have bound := d.threshold.toNat_lt_size
  have counted : d.lengthened.toNat = d.streak.toNat + 1 := toNat_lengthened (by omega)
  have full : d.threshold ≤ d.lengthened ↔ d.streak.toNat + 1 = d.threshold.toNat := by
    rw [UInt32.le_iff_toNat_le, counted]
    omega
  rw [vote, ← counted, UInt32.ofNat_toNat]
  simp only [if_neg disagrees, full, counted]

lemma missed_of_lt {n : Nat} (below : n < (start inertia).threshold.toNat) :
    missed inertia n = ⟨inertia, .satisfied, .ofNat n⟩ :=
  if_pos below

lemma missed_of_le {n : Nat} (full : (start inertia).threshold.toNat ≤ n) :
    missed inertia n = ⟨inertia, .violated, 0⟩ :=
  if_neg (by omega)

lemma missed_vote_false (inertia : UInt32) (n : Nat) :
    ((missed inertia n).vote false).2 = missed inertia (n + 1) := by
  by_cases below : n < (start inertia).threshold.toNat
  · have bound := (start inertia).threshold.toNat_lt_size
    have counted : (UInt32.ofNat n).toNat = n := UInt32.toNat_ofNat_of_lt' (below.trans bound)
    have threshold : threshold ⟨inertia, .satisfied, .ofNat n⟩ = (start inertia).threshold := rfl
    rw [missed_of_lt below, vote_of_ne (by simp [Status.ofVote]) (by rwa [counted, threshold])]
    simp only [counted, threshold]
    split
    case isTrue full => exact (missed_of_le full.ge).symm
    case isFalse early => exact (missed_of_lt (by omega)).symm
  · rw [missed_of_le (by omega), missed_of_le (by omega)]
    rfl

/-- **A fresh status that is voted against counts the votes, and changes when its threshold is
full.** -/
theorem start_after_replicate (inertia : UInt32) (n : Nat) :
    (start inertia).after (List.replicate n false) = missed inertia n := by
  induction n with
  | zero => rw [missed, if_pos (threshold_pos _)]; rfl
  | succ n ih =>
    rw [List.replicate_succ', after_append, ih]
    exact missed_vote_false inertia n

end Debounce

namespace Constraint

/-- The vote that the observed value of the constraint's metric casts, if there is one. -/
def vote? (c : Constraint) (observed : Nat → Option Float) : Option Bool :=
  (c.metric?.bind observed).map c.goal.isMet

/-- The constraint after a list of votes. -/
def voted (c : Constraint) (votes : List Bool) : Constraint :=
  { c with tracker := c.tracker.after votes }

lemma key_voted (c : Constraint) (votes : List Bool) :
    Keyed.key (c.voted votes) = Keyed.key c := rfl

lemma voted_append (c : Constraint) (votes more : List Bool) :
    c.voted (votes ++ more) = (c.voted votes).voted more :=
  congrArg (Constraint.mk c.priority c.selector c.goal c.confidence)
    (Debounce.after_append c.tracker votes more)

end Constraint

namespace State

variable {s : State} {observed : Nat → Option Float}
  {history : List (Nat → Option Float)}

lemma observeConstraint_next (name : String) (observed : Nat → Option Float) (c : Constraint) :
    (observeConstraint name observed c).value.2 = c.voted (c.vote? observed).toList := by
  unfold observeConstraint Constraint.vote?
  split
  case h_1 unseen => rw [unseen]; rfl
  case h_2 value seen => rw [seen]; rfl

lemma observeConstraint_flag (name : String) (observed : Nat → Option Float) (c : Constraint) :
    (observeConstraint name observed c).value.1 = true ↔
      ∃ vote, c.vote? observed = some vote ∧ (c.tracker.vote vote).1 = true := by
  unfold observeConstraint Constraint.vote?
  split
  case h_1 unseen => simp [unseen, Logged.quiet]
  case h_2 value seen => simp [seen, Constraint.observe]

/-- The state after its constraints took what was observed at one time after the other. -/
def heard (history : List (Nat → Option Float)) (s : State) : State :=
  { s with constraints :=
      s.constraints.map (fun c => c.voted (history.filterMap c.vote?)) fun c => c.key_voted _ }

lemma key_heard (history : List (Nat → Option Float)) (s : State) :
    Keyed.key (s.heard history) = Keyed.key s := rfl

lemma observe_next (s : State) (observed : Nat → Option Float) :
    (s.observe observed).value.2 = s.heard [observed] := by
  refine congrArg (State.mk s.name s.rank) (Roster.map_congr fun c _ => ?_)
  rw [observeConstraint_next, filterMap_singleton]

lemma observe_flag (s : State) (observed : Nat → Option Float) :
    (s.observe observed).value.1 = true ↔ ∃ c ∈ s.constraints.items,
      ∃ vote, c.vote? observed = some vote ∧ (c.tracker.vote vote).1 = true := by
  have flags : (s.observe observed).value.1 = s.constraints.items.any fun c =>
      (observeConstraint s.name observed c).value.1 := by
    rw [observe, Logged.map, Roster.each_value]
    exact List.any_map
  rw [flags, List.any_eq_true]
  simp only [observeConstraint_flag]

lemma heard_nil (s : State) : s.heard [] = s := by
  have same : s.constraints.map (fun c => c.voted []) (fun c => c.key_voted _) = s.constraints :=
    Roster.map_of_fixed fun _ _ => rfl
  exact congrArg (State.mk s.name s.rank) same

/-- Votes do not change which votes are cast later. -/
lemma heard_append (s : State) (history more : List (Nat → Option Float)) :
    s.heard (history ++ more) = (s.heard history).heard more := by
  have votes :
      s.constraints.map (fun c => c.voted ((history ++ more).filterMap c.vote?))
          (fun c => c.key_voted _) =
        (s.constraints.map (fun c => c.voted (history.filterMap c.vote?))
          fun c => c.key_voted _).map (fun c => c.voted (more.filterMap c.vote?))
            fun c => c.key_voted _ := by
    rw [Roster.map_map]
    refine Roster.map_congr fun c _ => ?_
    rw [List.filterMap_append, Constraint.voted_append]
    rfl
  exact congrArg (State.mk s.name s.rank) votes

/-- States of which the named one heard something. -/
def heardBy (name : String) (history : List (Nat → Option Float)) (states : Roster State) :
    Roster State :=
  states.modify name (heard history) (key_heard history)

lemma mem_heardBy {name : String} {states : Roster State} :
    s ∈ (heardBy name history states).items ↔
      (∃ t ∈ states.items, t.name = name ∧ t.heard history = s) ∨
        s ∈ states.items ∧ s.name ≠ name :=
  Roster.mem_modify

lemma heardBy_nil (name : String) (states : Roster State) : heardBy name [] states = states := by
  rw [heardBy, Roster.modify]
  exact Roster.map_of_fixed fun s _ => by rw [heard_nil, ite_self]

lemma heardBy_append (name : String) (history more : List (Nat → Option Float))
    (states : Roster State) :
    heardBy name (history ++ more) states = heardBy name more (heardBy name history states) := by
  rw [heardBy, heardBy, heardBy, Roster.modify_modify]
  exact Roster.map_congr fun s _ => by rw [heard_append]; rfl

/-! ### From a fresh start -/

/-- Nothing speaks against any constraint. -/
def Fresh (s : State) : Prop :=
  ∀ c ∈ s.constraints.items, c.status = .satisfied ∧ c.tracker.streak = 0

/-- Nothing that is observed speaks against any constraint. -/
def Met (s : State) (observed : Nat → Option Float) : Prop :=
  ∀ c ∈ s.constraints.items, c.vote? observed ≠ some false

lemma fresh_reset (s : State) : s.reset.Fresh := by
  intro c hc
  obtain ⟨d, -, rfl⟩ := List.mem_map.mp hc
  exact ⟨rfl, rfl⟩

/-- Once fresh, a constraint has the votes that it heard, and no other ones. -/
lemma Fresh.tracker_heard {c : Constraint} (fresh : s.Fresh)
    (hc : c ∈ (s.heard history).constraints.items) :
    c.tracker = (Debounce.start c.tracker.inertia).after (history.filterMap c.vote?) := by
  obtain ⟨d, hd, rfl⟩ := List.mem_map.mp hc
  obtain ⟨satisfied, none⟩ := fresh d hd
  rw [Constraint.voted, Debounce.after_inertia, ← Debounce.eq_start satisfied none]
  rfl

lemma Fresh.heard (fresh : s.Fresh) (met : ∀ observed ∈ history, s.Met observed) :
    (s.heard history).Fresh := by
  intro c hc
  have votes : ∀ vote ∈ history.filterMap c.vote?, vote = true := by
    intro vote hv
    obtain ⟨observed, ho, cast⟩ := List.mem_filterMap.mp hv
    obtain ⟨d, hd, rfl⟩ := List.mem_map.mp hc
    exact Bool.eq_true_of_not_eq_false fun against => met observed ho d hd (against ▸ cast)
  have unchanged := fresh.tracker_heard hc
  rw [Debounce.start_after_of_met votes] at unchanged
  rw [Constraint.status, unchanged]
  exact ⟨rfl, rfl⟩

lemma Met.heard (met : s.Met observed) : (s.heard history).Met observed := by
  intro c hc
  obtain ⟨d, hd, rfl⟩ := List.mem_map.mp hc
  exact met d hd

lemma Fresh.not_changed {c : Constraint} {vote : Bool} (fresh : s.Fresh) (met : s.Met observed)
    (hc : c ∈ s.constraints.items) (cast : c.vote? observed = some vote) :
    (c.tracker.vote vote).1 = false := by
  obtain ⟨satisfied, none⟩ := fresh c hc
  obtain rfl : vote = true :=
    Bool.eq_true_of_not_eq_false fun against => met c hc (against ▸ cast)
  rw [Debounce.eq_start satisfied none]
  rfl

end State

end Autotune
