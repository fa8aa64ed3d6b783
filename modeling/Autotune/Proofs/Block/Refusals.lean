import Autotune.Proofs.Block.Builder
import Autotune.Proofs.Knowledge.Update
import Autotune.Proofs.State.Validate

/-!
# Why a builder refuses

Once all indices are in range (`Builder.InRange`), there are five reasons left for which the parts of
a block are refused: `Builder.Refuses` names each with its cause, and `Builder.refuses_of_build` says
that there is no other.  `Builder.exists_build_iff` says when such parts are accepted.
-/

namespace Autotune

variable {kn mn : Nat}

namespace State

variable {s : State} {points : List (OperatingPoint kn mn)} {fault : Fault}

/-- A state whose selectors are in range is refused for an undefined power at a point. -/
lemma validate_eq_error (inRange : ∀ selector ∈ s.selectors, selector.check kn mn = .ok ⟨⟩)
    (h : s.validate points = .error fault) :
    s.rank.formula.composer = .geometric ∧ ∃ p ∈ points, ∃ t ∈ s.rank.formula.terms,
      Formula.Term.validate t p = .error fault := by
  have terms : s.rank.formula.validateIndices kn mn = .ok ⟨⟩ :=
    validateIndices_eq_ok.mpr fun t ht =>
      inRange _ (List.mem_append_left _ (List.mem_map_of_mem ht))
  have constraints : (s.constraints.items.forM fun c => c.selector.check kn mn) = .ok ⟨⟩ :=
    forM_eq_ok.mpr fun c hc => inRange _ (List.mem_append_right _ (List.mem_map_of_mem hc))
  have undefined : s.rank.formula.validatePoints points = .error fault := by
    unfold validate at h
    rw [terms, constraints] at h
    exact h
  unfold Formula.validatePoints at undefined
  split at undefined
  case h_1 geometric =>
    obtain ⟨p, hp, refused⟩ := forM_eq_error undefined
    exact ⟨geometric, p, hp, forM_eq_error refused⟩
  case h_2 => cases undefined

end State

namespace Builder

variable {parts : Builder kn mn} {fault : Fault}

/-- Everything that the parts of a block name by an index exists. -/
structure InRange (parts : Builder kn mn) : Prop where
  selectors : ∀ s ∈ parts.states, ∀ selector ∈ s.selectors, selector.check kn mn = .ok ⟨⟩
  adapted : ∀ a ∈ parts.adaptors, a.metric < mn
  watched : ∀ entry ∈ parts.watched, entry.1 < mn

/-- The reasons for which parts with all indices in range are refused. -/
inductive Refuses (parts : Builder kn mn) : Fault → Prop where
  | noPoint : parts.points = [] → Refuses parts .emptyKnowledge
  /-- A rank is not defined at a point. -/
  | power {s : State} {t : Term} {p : OperatingPoint kn mn} : s ∈ parts.states →
    s.rank.formula.composer = .geometric → t ∈ s.rank.formula.terms → p ∈ parts.points →
      undefinedPower (t.selector.read p) t.coefficient = true →
        Refuses parts (.undefinedPower t.selector.segment t.selector.index (t.selector.read p)
          t.coefficient p.id)
  /-- Two states share a name. -/
  | sameName {name : String} : 1 < (parts.states.map State.name).count name →
    Refuses parts (.duplicateState name)
  /-- No state has the name of the active one. -/
  | unknownName {name : String} : parts.active = some name → name ∉ parts.states.map State.name →
    Refuses parts (.unknownState name)
  /-- Two adaptors share a metric. -/
  | sameMetric {metric : Nat} : 1 < (parts.adaptors.map Adaptor.metric).count metric →
    Refuses parts (.duplicateAdaptor metric)

lemma one_lt_count {α β : Type} [BEq β] [LawfulBEq β] {f : α → β} {before after : List α} {a : α}
    (again : ∃ b ∈ before, f b = f a) : 1 < ((before ++ a :: after).map f).count (f a) := by
  have first : 0 < (before.map f).count (f a) := List.count_pos_iff.mpr (List.mem_map.mpr again)
  rw [List.map_append, List.map_cons, List.count_append, List.count_cons_self]
  omega

lemma mem_of_mem_knowledge {points : List (OperatingPoint kn mn)} {k : Knowledge kn mn}
    (h : Knowledge.ofPoints points = .ok k) {p : OperatingPoint kn mn} (hp : p ∈ k.points) :
    p ∈ points := by
  rw [(Knowledge.ofPoints_eq_ok h).2.1] at hp
  obtain ⟨id, -, found⟩ := List.mem_filterMap.mp hp
  exact List.mem_reverse.mp (List.mem_of_find?_eq_some found)

/-- The registration of states is refused by one that is not fit or has a name which was used. -/
lemma register_eq_error {points : List (OperatingPoint kn mn)} {states : List State}
    (h : register points states = .error fault) :
    (∃ s ∈ states, s.validate points = .error fault) ∨
      ∃ name, fault = .duplicateState name ∧ 1 < (states.map State.name).count name := by
  obtain ⟨before, s, after, registered, rfl, accepted, refused⟩ := foldlM_eq_error h
  obtain unfit | ⟨⟨⟩, -, refused⟩ := bind_eq_error.mp refused
  · exact .inl ⟨s, by simp, unfit⟩
  · obtain ⟨known, rfl⟩ | ⟨-, refused⟩ := guard_eq_error.mp refused
    · obtain ⟨t, ht, same⟩ := Roster.contains_iff.mp known
      exact .inr ⟨_, rfl, one_lt_count ⟨t, (mem_registered accepted).mp ht, same⟩⟩
    · cases refused

lemma adaptors_eq_error {adaptors : List Adaptor}
    (h : adaptors.foldlM Adaptors.add (Roster.empty : Adaptors) = .error fault) :
    ∃ metric, fault = .duplicateAdaptor metric ∧
      1 < (adaptors.map Adaptor.metric).count metric := by
  obtain ⟨before, a, after, registered, rfl, accepted, refused⟩ := foldlM_eq_error h
  unfold Adaptors.add at refused
  split at refused
  case isTrue known =>
    cases refused
    obtain ⟨b, hb, same⟩ := Roster.contains_iff.mp known
    have earlier : b ∈ before := by simpa [Roster.empty] using (mem_adaptors accepted).mp hb
    exact ⟨_, rfl, one_lt_count ⟨b, earlier, same⟩⟩
  case isFalse => cases refused

lemma watch_eq_error {monitors watched : List (Nat × MonitorId)}
    (h : watch mn monitors watched = .error fault) : ∃ entry ∈ watched, mn ≤ entry.1 := by
  obtain ⟨before, entry, after, watching, rfl, -, refused⟩ := foldlM_eq_error h
  refine ⟨entry, by simp, ?_⟩
  by_contra inside
  dsimp only at refused
  rw [if_neg inside] at refused
  split at refused <;> cases refused

lemma contains_first {points : List (OperatingPoint kn mn)} {registered : Roster State}
    (h : register points parts.states = .ok registered) :
    (parts.allStates registered).contains
      ((parts.states.head?.map State.name).getD defaultStateName) = true := by
  unfold allStates
  cases states : parts.states with
  | nil => exact Roster.contains_insert.mpr (.inl rfl)
  | cons s rest =>
    have first : s ∈ registered.items := (mem_registered h).mpr (states ▸ List.mem_cons_self)
    exact Roster.contains_iff.mpr ⟨s, first, rfl⟩

lemma contains_given {points : List (OperatingPoint kn mn)} {registered : Roster State}
    (h : register points parts.states = .ok registered) {name : String}
    (given : name ∈ parts.states.map State.name) :
    (parts.allStates registered).contains name = true := by
  obtain ⟨s, hs, rfl⟩ := List.mem_map.mp given
  rw [allStates_of_mem hs]
  exact Roster.contains_iff.mpr ⟨s, (mem_registered h).mpr hs, rfl⟩

/-- **Parts with all indices in range are refused for five reasons only.** -/
theorem refuses_of_build (inRange : parts.InRange) (h : parts.build = .error fault) :
    parts.Refuses fault := by
  unfold build at h
  obtain refused | ⟨knowledge, known, h⟩ := bind_eq_error.mp h
  · obtain ⟨rfl, none⟩ := Knowledge.ofPoints_eq_error.mp refused
    exact .noPoint none
  obtain refused | ⟨registered, states, h⟩ := bind_eq_error.mp h
  · obtain ⟨s, hs, unfit⟩ | ⟨name, rfl, twice⟩ := register_eq_error refused
    · obtain ⟨geometric, p, hp, t, ht, undefined⟩ :=
        State.validate_eq_error (inRange.selectors s hs) unfit
      unfold Formula.Term.validate at undefined
      dsimp only at undefined
      split at undefined
      case isTrue power =>
        cases undefined
        exact .power hs geometric ht (mem_of_mem_knowledge known hp) power
      case isFalse => cases undefined
    · exact .sameName twice
  obtain ⟨missing, rfl⟩ | ⟨-, h⟩ := guard_eq_error.mp h
  · have missing : ¬ (parts.allStates registered).contains parts.activeName = true := by
      rw [Bool.not_eq_true'] at missing
      rw [Bool.not_eq_true]
      exact missing
    cases chosen : parts.active with
    | none =>
      refine absurd (contains_first states) ?_
      rwa [activeName, chosen, Option.getD_none] at missing
    | some name =>
      rw [activeName, chosen, Option.getD_some] at missing
      exact .unknownName chosen fun given => missing (contains_given states given)
  obtain refused | ⟨adaptors, added, h⟩ := bind_eq_error.mp h
  · obtain ⟨metric, rfl, twice⟩ := adaptors_eq_error refused
    exact .sameMetric twice
  have adapted : adaptors.validate mn = .ok ⟨⟩ := by
    refine Adaptors.validate_eq_ok.mpr fun a ha => inRange.adapted a ?_
    simpa [Roster.empty] using (mem_adaptors added).mp ha
  obtain refused | ⟨⟨⟩, -, h⟩ := bind_eq_error.mp h
  · rw [adapted] at refused
    cases refused
  obtain refused | ⟨monitors, -, h⟩ := bind_eq_error.mp h
  · obtain ⟨entry, he, outside⟩ := watch_eq_error refused
    exact absurd (inRange.watched entry he) (Nat.not_lt.mpr outside)
  cases h

/-- **When parts with all indices in range are accepted.** -/
theorem exists_build_iff (inRange : parts.InRange) :
    (∃ built, parts.build = .ok built) ↔
      ∃ knowledge registered, Knowledge.ofPoints parts.points = .ok knowledge ∧
        register knowledge.points parts.states = .ok registered ∧
        (parts.allStates registered).contains parts.activeName = true ∧
        (parts.adaptors.map Adaptor.metric).Nodup := by
  constructor
  · rintro ⟨built, h⟩
    obtain ⟨knowledge, registered, adaptors, -, -, known, states, active, added, -⟩ := build_eq_ok h
    exact ⟨knowledge, registered, known, states, active, exists_adaptors_iff.mp ⟨adaptors, added⟩⟩
  · rintro ⟨knowledge, registered, known, states, active, distinct⟩
    obtain ⟨adaptors, added⟩ := exists_adaptors_iff.mpr distinct
    have adapted : adaptors.validate mn = .ok ⟨⟩ := by
      refine Adaptors.validate_eq_ok.mpr fun a ha => inRange.adapted a ?_
      simpa [Roster.empty] using (mem_adaptors added).mp ha
    obtain ⟨monitors, watching⟩ : ∃ monitors, watch mn parts.adapted parts.watched = .ok monitors := by
      cases outcome : watch mn parts.adapted parts.watched with
      | ok monitors => exact ⟨monitors, rfl⟩
      | error fault =>
        obtain ⟨entry, he, outside⟩ := watch_eq_error outcome
        exact absurd (inRange.watched entry he) (Nat.not_lt.mpr outside)
    have chosen : ¬ (!(parts.allStates registered).contains parts.activeName) = true := by
      rw [active]
      exact Bool.false_ne_true
    simp only [build, bind_eq_ok, guard_eq_ok, pure_eq_ok]
    exact ⟨_, knowledge, known, registered, states, chosen, adaptors, added, ⟨⟩, adapted, monitors,
      watching, rfl⟩

end Builder

end Autotune
